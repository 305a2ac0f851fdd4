import Kotsadm.Lib.Machine
import Kotsadm.Lib.Processes
import Kotsadm.Sockets.DeployedVersion
import Kotsadm.Sockets.RestoreLoop

/-!
# Ticks — overlapping ticks of `deployLoop` and `restoreLoop`, and whom they reach

`setInterval` starts a tick of each loop every second, whether or not the one before has ended.  A
tick is a process that takes one step from one `await` to the next; an emission and the note of it
in `lastDeployedSequences` are one step.  A `deploy` event goes to every socket in the room of the
cluster, whichever entry of `clusterSocketHistory` it is sent for.
-/

namespace Kotsadm.Ticks

open KotsAppStore

/-- A version that was read: its sequence, and how often `current_sequence` had changed by then. -/
structure Observed where
  sequence : Int
  change : Nat
  deriving DecidableEq, Repr

/-- An app that was read, and how many restores had been set for it by then. -/
structure Listed where
  app : KotsApp
  restore : Nat
  deriving DecidableEq, Repr

inductive Purpose where
  | deploy (seen : Observed)
  | undeploy (restore : Nat)
  deriving DecidableEq, Repr

/-- A `deploy` event, the entry it was sent for and the connections that were in the room. -/
structure Message where
  history : ClusterSocketHistory
  receivers : List ClusterSocketHistory
  purpose : Purpose
  args : ApplicationManifests
  deriving DecidableEq, Repr

inductive Loop where
  | deployLoop
  | restoreLoop
  deriving DecidableEq, Repr

/-- Where a tick is.  The lists are the apps that are still to come for the entry. -/
inductive Phase where
  | entry (loop : Loop)
  -- deployLoop
  | deployApps (history : ClusterSocketHistory) (apps : List KotsApp)
  | checking (history : ClusterSocketHistory) (app : KotsApp) (seen : Observed)
      (apps : List KotsApp)
  | rendering (history : ClusterSocketHistory) (app : KotsApp) (seen : Observed)
      (apps : List KotsApp)
  | failed (history : ClusterSocketHistory) (app : KotsApp) (sequence : Int) (err : String)
      (apps : List KotsApp)
  -- restoreLoop
  | restoreApps (history : ClusterSocketHistory) (apps : List Listed)
  | restoring (history : ClusterSocketHistory) (listed : Listed) (cluster : ClusterRow)
      (apps : List Listed)
  | undeploying (history : ClusterSocketHistory) (listed : Listed) (cluster : ClusterRow)
      (apps : List Listed)
  | undeployed (history : ClusterSocketHistory) (listed : Listed) (apps : List Listed)
  | restored (history : ClusterSocketHistory) (listed : Listed) (apps : List Listed)
  | resetting (history : ClusterSocketHistory) (listed : Listed) (apps : List Listed)
  | done
  deriving DecidableEq, Repr

/-- A tick holds the array that `clusterSocketHistory` was when it started, and its place in it. -/
structure Tick where
  array : Nat
  index : Nat := 0
  phase : Phase
  deriving DecidableEq, Repr

/-- What the ticks share.  `$onConnection` pushes to the current array, `$onDisconnect` makes a new
one. -/
structure World where
  db : Database
  arrays : Nat → List ClusterSocketHistory := fun _ => []
  array : Nat := 0
  -- the connections in the rooms
  connected : List ClusterSocketHistory := []
  -- the map of an entry, by app
  lastDeployedSequences : ClusterSocketHistory → AppId → Option Int := fun _ _ => none
  -- newest first
  messages : List Message := []
  -- history: all entries ever pushed, how often `current_sequence` changed, to which values, and
  -- how many restores were set
  pushed : List ClusterSocketHistory := []
  changes : AppId → ClusterId → Nat := fun _ _ => 0
  values : AppId → ClusterId → Nat → Option Int
  restores : AppId → Nat := fun _ => 0

structure State where
  world : World
  ticks : List Tick := []

/-- What a step of a tick gets from outside. -/
structure Input where
  env : Env
  now : Timestamp := 0
  /-- The velero `Restore` of the app. -/
  restore : Except String (Option RestoreLoop.Phase) := .ok none
  /-- The sequence its backup is annotated with. -/
  sequence : Option Int := none

inductive Action where
  | connect (history : ClusterSocketHistory) (gone : Bool)
  | disconnect (socketId : String)
  | start (loop : Loop)
  | tick (i : Nat) (input : Input)
  | deployVersion (appId : AppId) (sequence : Int) (now : Timestamp)
  | initiateRestore (snapshotName : String) (appId : AppId)
  | cancelRestore (appId : AppId)
  | undeployResult (appId : AppId) (status : UndeployStatus)

namespace World

/-- A statement, and the changes of `current_sequence` that come with it. -/
def setDb (w : World) (db : Database) : World :=
  { w with
    db := db
    changes := fun appId clusterId =>
      if deployedSequence db appId clusterId = deployedSequence w.db appId clusterId then
        w.changes appId clusterId
      else w.changes appId clusterId + 1
    values := fun appId clusterId =>
      if deployedSequence db appId clusterId = deployedSequence w.db appId clusterId then
        w.values appId clusterId
      else Function.update (w.values appId clusterId) (w.changes appId clusterId + 1)
        (deployedSequence db appId clusterId) }

/-- `io.in(clusterId).emit("deploy", args)` -/
def emit (w : World) (history : ClusterSocketHistory) (purpose : Purpose)
    (args : ApplicationManifests) : World :=
  let receivers := w.connected.filter fun other => other.clusterId = history.clusterId
  { w with messages := ⟨history, receivers, purpose, args⟩ :: w.messages }

/-- The emission of `deployLoop`, with what is remembered of it. -/
def emitDeploy (w : World) (history : ClusterSocketHistory) (app : KotsApp) (seen : Observed)
    (args : ApplicationManifests) : World :=
  { w.emit history (.deploy seen) args with
    lastDeployedSequences := Function.update w.lastDeployedSequences history
      (Function.update (w.lastDeployedSequences history) app.id (some seen.sequence)) }

end World

/-! ## A tick -/

/-- The next entry of the array. -/
def Tick.entry (t : Tick) (w : World) (loop : Loop) : Phase :=
  match (w.arrays t.array)[t.index]? with
  | none => .done
  | some history =>
    match listAppsForCluster w.db history.clusterId, loop with
    | .error _, _ => .done
    | .ok apps, .deployLoop => .deployApps history apps
    | .ok apps, .restoreLoop =>
      .restoreApps history (apps.map fun app => ⟨app, w.restores app.id⟩)

/-- The next app of `deployLoop`, up to the version that is read. -/
def nextDeploy (w : World) (history : ClusterSocketHistory) (app : KotsApp) (apps : List KotsApp) :
    Phase :=
  if restoreInProgress app then .deployApps history apps
  else
    match getCurrentVersion w.db app.id history.clusterId with
    | .error _ => .done
    | .ok none => .deployApps history apps
    | .ok (some deployedAppVersion) =>
      if deployedAppVersion.sequence > -1 then
        .checking history app
          ⟨deployedAppVersion.sequence, w.changes app.id history.clusterId⟩ apps
      else .deployApps history apps

def check (w : World) (history : ClusterSocketHistory) (app : KotsApp) (seen : Observed)
    (apps : List KotsApp) : Phase :=
  if w.lastDeployedSequences history app.id = some seen.sequence then
    .deployApps history apps
  else .rendering history app seen apps

/-- Everything from the check to the emission. -/
def render (w : World) (env : Env) (history : ClusterSocketHistory) (app : KotsApp)
    (seen : Observed) (apps : List KotsApp) : World × Phase :=
  match getCluster w.db history.clusterId with
  | .error _ => (w, .done)
  | .ok cluster =>
    match deployArgs env w.db app cluster seen.sequence with
    | .error err => (w, .failed history app seen.sequence err apps)
    | .ok args => (w.emitDeploy history app seen args, .deployApps history apps)

/-- The next app of `restoreLoop`. -/
def nextRestore (w : World) (history : ClusterSocketHistory) (listed : Listed)
    (apps : List Listed) : Phase :=
  if restoreInProgress listed.app then
    match getCluster w.db history.clusterId with
    | .error _ => .done
    | .ok cluster => .restoring history listed cluster apps
  else .restoreApps history apps

/-- `handleRestoreInProgress` up to its next `await`; what is thrown is logged. -/
def handleRestoreInProgress (input : Input) (history : ClusterSocketHistory) (listed : Listed)
    (cluster : ClusterRow) (apps : List Listed) : Phase :=
  match listed.app.restoreUndeployStatus, input.restore with
  | some .inProcess, _ | some .failed, _ => .restoreApps history apps
  | some .completed, .ok (some .completed) => .restored history listed apps
  | some .completed, .ok (some .partiallyFailed) => .resetting history listed apps
  | some .completed, .ok (some .failed) => .resetting history listed apps
  -- without a `Restore` one is created in velero
  | some .completed, _ => .restoreApps history apps
  | none, _ => .undeploying history listed cluster apps

def undeployApp (w : World) (env : Env) (history : ClusterSocketHistory) (listed : Listed)
    (cluster : ClusterRow) (apps : List Listed) : World × Phase :=
  match undeployArgs env w.db listed.app cluster with
  | .error _ => (w, .restoreApps history apps)
  | .ok args => (w.emit history (.undeploy listed.restore) args, .undeployed history listed apps)

/-- A restore that velero has completed; a backup without a sequence is an error. -/
def deployRestored (w : World) (input : Input) (history : ClusterSocketHistory) (listed : Listed)
    (apps : List Listed) : World × Phase :=
  match input.sequence with
  | none => (w, .restoreApps history apps)
  | some sequence =>
    (w.setDb (deployVersion w.db listed.app.id sequence input.now), .resetting history listed apps)

/-- One step of a tick. -/
def Tick.step (t : Tick) (w : World) (input : Input) : World × Tick :=
  let goTo (returned : World × Phase) : World × Tick :=
    (returned.1, { t with phase := returned.2 })
  match t.phase with
  | .entry loop => goTo (w, t.entry w loop)
  | .deployApps _ [] => (w, { t with index := t.index + 1, phase := .entry .deployLoop })
  | .deployApps history (app :: apps) => goTo (w, nextDeploy w history app apps)
  | .checking history app seen apps => goTo (w, check w history app seen apps)
  | .rendering history app seen apps => goTo (render w input.env history app seen apps)
  | .failed history app sequence err apps =>
    goTo (w.setDb (updateDownstreamsStatus w.db app.id sequence "failed" err),
      .deployApps history apps)
  | .restoreApps _ [] => (w, { t with index := t.index + 1, phase := .entry .restoreLoop })
  | .restoreApps history (listed :: apps) => goTo (w, nextRestore w history listed apps)
  | .restoring history listed cluster apps =>
    goTo (w, handleRestoreInProgress input history listed cluster apps)
  | .undeploying history listed cluster apps =>
    goTo (undeployApp w input.env history listed cluster apps)
  | .undeployed history listed apps =>
    goTo (w.setDb (updateAppRestoreUndeployStatus w.db listed.app.id .inProcess),
      .restoreApps history apps)
  | .restored history listed apps => goTo (deployRestored w input history listed apps)
  | .resetting history listed apps =>
    goTo (w.setDb (updateAppRestoreReset w.db listed.app.id), .restoreApps history apps)
  | .done => (w, t)

/-! ## The machine -/

/-- `$onConnection` after its `await`: the socket joins the room and is pushed to the array.  One
that is gone by then is not reached, and stays in the array. -/
def connect (w : World) (history : ClusterSocketHistory) (gone : Bool) : World :=
  { w with
    arrays := Function.update w.arrays w.array (w.arrays w.array ++ [history])
    connected := if gone then w.connected else w.connected ++ [history]
    pushed := history :: w.pushed }

def disconnect (w : World) (socketId : String) : World :=
  { w with
    arrays := Function.update w.arrays (w.array + 1)
      ((w.arrays w.array).filter fun history => history.socketId ≠ socketId)
    array := w.array + 1
    connected := w.connected.filter fun history => history.socketId ≠ socketId }

/-- A socket has an id of its own, and the path of the request a name. -/
def step (s : State) : Action → Option State
  | .connect history gone =>
    if s.world.pushed.any (fun other => other.socketId = history.socketId) then none
    else some { s with world := connect s.world history gone }
  | .disconnect socketId => some { s with world := disconnect s.world socketId }
  | .start loop =>
    some { s with ticks := s.ticks ++ [{ array := s.world.array, phase := .entry loop }] }
  | .tick i input =>
    (s.ticks[i]?).map fun t =>
      let (world, t) := t.step s.world input
      { world, ticks := s.ticks.set i t }
  | .deployVersion appId sequence now =>
    some { s with world := s.world.setDb (KotsAppStore.deployVersion s.world.db appId sequence now) }
  | .initiateRestore snapshotName appId =>
    if snapshotName = "" then none
    else
      let world := s.world.setDb (KotsAppStore.initiateRestore s.world.db snapshotName appId)
      some { s with
        world := { world with
          restores := Function.update world.restores appId (world.restores appId + 1) } }
  | .cancelRestore appId =>
    some { s with world := s.world.setDb (updateAppRestoreReset s.world.db appId) }
  | .undeployResult appId status =>
    some { s with
      world := s.world.setDb (updateAppRestoreUndeployStatus s.world.db appId status) }

def machine : Machine State Action := ⟨step⟩

/-- The API has just started; the database is arbitrary. -/
structure Init (s : State) : Prop where
  array : s.world.array = 0
  arrays : ∀ a, s.world.arrays a = []
  connected : s.world.connected = []
  pushed : s.world.pushed = []
  lastDeployedSequences : ∀ history appId, s.world.lastDeployedSequences history appId = none
  messages : s.world.messages = []
  values : ∀ appId clusterId, s.world.values appId clusterId (s.world.changes appId clusterId) =
    deployedSequence s.world.db appId clusterId
  ticks : s.ticks = []

/-- The API starts with one app that is deployed to one cluster. -/
def startedState : State where
  world :=
    { db := RestoreLoop.deployedState.db
      values := fun appId clusterId _ =>
        deployedSequence RestoreLoop.deployedState.db appId clusterId }

theorem init_startedState : Init startedState where
  array := rfl
  arrays := fun _ => rfl
  connected := rfl
  pushed := rfl
  lastDeployedSequences := fun _ _ => rfl
  messages := rfl
  values := fun _ _ => rfl
  ticks := rfl

def echoTick (i : Nat) : Action := .tick i { env := echoEnv }

/-! ## What the messages say -/

namespace Message

/-- What a message of `deployLoop` was sent for. -/
def deployOf (history : ClusterSocketHistory) (appId : AppId) (m : Message) : Option Observed :=
  match m.purpose with
  | .deploy seen =>
    if m.history = history ∧ m.args.appId = appId then some seen else none
  | .undeploy _ => none

/-- The cluster, the app and the restore of an undeploy. -/
def undeployOf (m : Message) : Option (ClusterId × AppId × Nat) :=
  match m.purpose with
  | .deploy _ => none
  | .undeploy restore => some (m.history.clusterId, m.args.appId, restore)

/-- The connection has received the `change`-th version of the app. -/
def isDeploy (history : ClusterSocketHistory) (appId : AppId) (change : Nat) (m : Message) : Bool :=
  match m.purpose with
  | .deploy seen => m.receivers.contains history && m.args.appId = appId && seen.change = change
  | .undeploy _ => false

end Message

theorem undeployArgs_appId {env : Env} {db : Database} {app : KotsApp} {cluster : ClusterRow}
    {args : ApplicationManifests} (h : undeployArgs env db app cluster = .ok args) :
    args.appId = app.id := by
  obtain ⟨spec, -, h⟩ := Except.bind_eq_ok.mp h
  obtain ⟨text, -, h⟩ := Except.bind_eq_ok.mp h
  obtain ⟨rendered, -, h⟩ := Except.bind_eq_ok.mp h
  obtain ⟨namespaces, -, h⟩ := Except.bind_eq_ok.mp h
  cases h
  rfl

theorem render_cases (w : World) (env : Env) (history : ClusterSocketHistory) (app : KotsApp)
    (seen : Observed) (apps : List KotsApp) :
    render w env history app seen apps = (w, .done) ∨
    (∃ err, render w env history app seen apps =
      (w, .failed history app seen.sequence err apps)) ∨
    ∃ args, args.appId = app.id ∧ render w env history app seen apps =
      (w.emitDeploy history app seen args, .deployApps history apps) := by
  unfold render
  split
  next => exact .inl rfl
  next cluster _ =>
    split
    next err _ => exact .inr (.inl ⟨err, rfl⟩)
    next args hargs => exact .inr (.inr ⟨args, (deployArgs_manifests hargs).1, rfl⟩)

theorem undeployApp_cases (w : World) (env : Env) (history : ClusterSocketHistory)
    (listed : Listed) (cluster : ClusterRow) (apps : List Listed) :
    undeployApp w env history listed cluster apps = (w, .restoreApps history apps) ∨
    ∃ args, args.appId = listed.app.id ∧ undeployApp w env history listed cluster apps =
      (w.emit history (.undeploy listed.restore) args, .undeployed history listed apps) := by
  unfold undeployApp
  split
  next => exact .inl rfl
  next args hargs => exact .inr ⟨args, undeployArgs_appId hargs, rfl⟩

/-- Where `handleRestoreInProgress` goes: it only undeploys an app without a status. -/
theorem handleRestoreInProgress_cases (input : Input) (history : ClusterSocketHistory)
    (listed : Listed) (cluster : ClusterRow) (apps : List Listed) :
    (listed.app.restoreUndeployStatus = none ∧
      handleRestoreInProgress input history listed cluster apps =
        .undeploying history listed cluster apps) ∨
    handleRestoreInProgress input history listed cluster apps = .restoreApps history apps ∨
    handleRestoreInProgress input history listed cluster apps = .restored history listed apps ∨
    handleRestoreInProgress input history listed cluster apps =
      .resetting history listed apps := by
  unfold handleRestoreInProgress
  split <;> simp_all

/-! ## Restores in progress -/

def InProgress (db : Database) (appId : AppId) : Prop :=
  ∃ name, restoreInProgressName db appId = some name ∧ name ≠ ""

section InProgress

variable {db db' : Database} {appId appId' : AppId}

theorem inProgress_of_app (happ : db'.app = db.app) : InProgress db' appId ↔ InProgress db appId := by
  unfold InProgress restoreInProgressName
  rw [happ]

theorem inProgress_undeployStatus {status : UndeployStatus} :
    InProgress (updateAppRestoreUndeployStatus db appId status) appId' ↔ InProgress db appId' := by
  unfold InProgress
  rw [restoreInProgressName_updateAppRestoreUndeployStatus]

theorem inProgress_reset :
    InProgress (updateAppRestoreReset db appId) appId' ↔ appId' ≠ appId ∧ InProgress db appId' := by
  unfold InProgress restoreInProgressName updateAppRestoreReset
  rw [find?_updateApp]
  by_cases heq : appId' = appId
  · rw [if_pos heq]
    refine iff_of_false ?_ fun h => h.1 heq
    rintro ⟨name, hname, -⟩
    cases hrow : db.app.find? appId' <;> simp [hrow] at hname
  · rw [if_neg heq, and_iff_right heq]

theorem inProgress_initiateRestore {snapshotName : String} (hother : appId' ≠ appId)
    (h : InProgress (initiateRestore db snapshotName appId) appId') : InProgress db appId' := by
  obtain ⟨name, hname, hne⟩ := h
  have hname' := restoreInProgressName_initiateRestore _ _ _ hname
  rw [if_neg hother] at hname'
  exact ⟨name, hname', hne⟩

/-- A restore that is set does not end another one. -/
theorem inProgress_of_initiateRestore {snapshotName : String} (hname : snapshotName ≠ "")
    (h : InProgress db appId') : InProgress (initiateRestore db snapshotName appId) appId' := by
  obtain ⟨name, hold, hne⟩ := h
  unfold InProgress restoreInProgressName initiateRestore
  rw [find?_updateApp]
  split
  next =>
    obtain ⟨row, hrow, -⟩ := Option.bind_eq_some_iff.mp hold
    rw [hrow]
    exact ⟨snapshotName, rfl, hname⟩
  next => exact ⟨name, hold, hne⟩

end InProgress

/-! ## What a step of a tick does -/

/-- The entry that a tick is at. -/
def Phase.history : Phase → Option ClusterSocketHistory
  | .entry _ | .done => none
  | .deployApps history _ | .checking history _ _ _ | .rendering history _ _ _
  | .failed history _ _ _ _ | .restoreApps history _ | .restoring history _ _ _
  | .undeploying history _ _ _ | .undeployed history _ _ | .restored history _ _
  | .resetting history _ _ => some history

/-- A tick stays at its entry, or takes one of its array. -/
theorem Tick.step_history {t : Tick} {w : World} {input : Input} {history : ClusterSocketHistory}
    (h : (t.step w input).2.phase.history = some history) :
    t.phase.history = some history ∨ history ∈ w.arrays t.array := by
  obtain ⟨array, index, phase⟩ := t
  cases phase with
  | entry loop =>
    right
    change (Tick.entry ⟨array, index, .entry loop⟩ w loop).history = some history at h
    unfold Tick.entry at h
    split at h
    next => cases h
    next history' hhistory =>
      have hmem := List.mem_of_getElem? hhistory
      split at h
      next => cases h
      next =>
        cases h
        exact hmem
      next =>
        cases h
        exact hmem
  | deployApps history' apps =>
    left
    cases apps with
    | nil => cases h
    | cons app apps =>
      change (nextDeploy w history' app apps).history = some history at h
      unfold nextDeploy at h
      split at h
      next => exact h
      next =>
        split at h
        next => cases h
        next => exact h
        next => split at h <;> exact h
  | checking history' app seen apps =>
    left
    change (check w history' app seen apps).history = some history at h
    unfold check at h
    split at h <;> exact h
  | rendering history' app seen apps =>
    left
    change (render w input.env history' app seen apps).2.history = some history at h
    rcases render_cases w input.env history' app seen apps with heq | ⟨err, heq⟩ | ⟨args, -, heq⟩
    · rw [heq] at h
      cases h
    · rw [heq] at h
      exact h
    · rw [heq] at h
      exact h
  | failed => exact .inl h
  | restoreApps history' apps =>
    left
    cases apps with
    | nil => cases h
    | cons listed apps =>
      change (nextRestore w history' listed apps).history = some history at h
      unfold nextRestore at h
      split at h
      next =>
        split at h
        next => cases h
        next => exact h
      next => exact h
  | restoring history' listed cluster apps =>
    left
    change (handleRestoreInProgress input history' listed cluster apps).history = some history at h
    rcases handleRestoreInProgress_cases input history' listed cluster apps with
      ⟨-, heq⟩ | heq | heq | heq
    all_goals
      rw [heq] at h
      exact h
  | undeploying history' listed cluster apps =>
    left
    change (undeployApp w input.env history' listed cluster apps).2.history = some history at h
    rcases undeployApp_cases w input.env history' listed cluster apps with heq | ⟨args, -, heq⟩
    all_goals
      rw [heq] at h
      exact h
  | undeployed => exact .inl h
  | restored history' listed apps =>
    left
    change (deployRestored w input history' listed apps).2.history = some history at h
    unfold deployRestored at h
    split at h <;> exact h
  | resetting => exact .inl h
  | done => cases h

/-- What a step of a tick does to the world: nothing, an emission, a statement that ends no restore,
or the end of one. -/
theorem Tick.step_world (t : Tick) (w : World) (input : Input) :
    (t.step w input).1 = w ∨
    (∃ history app seen apps args, t.phase = .rendering history app seen apps ∧
      args.appId = app.id ∧ (t.step w input).1 = w.emitDeploy history app seen args) ∨
    (∃ history listed cluster apps args, t.phase = .undeploying history listed cluster apps ∧
      args.appId = listed.app.id ∧
      (t.step w input).1 = w.emit history (.undeploy listed.restore) args) ∨
    (∃ db, (∀ appId, InProgress db appId ↔ InProgress w.db appId) ∧
      (t.step w input).1 = w.setDb db) ∨
    ∃ history listed apps, t.phase = .resetting history listed apps ∧
      (t.step w input).1 = w.setDb (updateAppRestoreReset w.db listed.app.id) := by
  obtain ⟨array, index, phase⟩ := t
  cases phase with
  | entry => exact .inl rfl
  | deployApps history apps => cases apps <;> exact .inl rfl
  | checking => exact .inl rfl
  | rendering history app seen apps =>
    rcases render_cases w input.env history app seen apps with h | ⟨err, h⟩ | ⟨args, hargs, h⟩
    · exact .inl (congrArg Prod.fst h)
    · exact .inl (congrArg Prod.fst h)
    · exact .inr (.inl ⟨history, app, seen, apps, args, rfl, hargs, congrArg Prod.fst h⟩)
  | failed history app sequence err apps =>
    exact .inr (.inr (.inr (.inl ⟨updateDownstreamsStatus w.db app.id sequence "failed" err,
      fun _ => inProgress_of_app rfl, rfl⟩)))
  | restoreApps history apps => cases apps <;> exact .inl rfl
  | restoring => exact .inl rfl
  | undeploying history listed cluster apps =>
    rcases undeployApp_cases w input.env history listed cluster apps with h | ⟨args, hargs, h⟩
    · exact .inl (congrArg Prod.fst h)
    · exact .inr (.inr (.inl ⟨history, listed, cluster, apps, args, rfl, hargs,
        congrArg Prod.fst h⟩))
  | undeployed =>
    exact .inr (.inr (.inr (.inl ⟨_, fun _ => inProgress_undeployStatus, rfl⟩)))
  | restored history listed apps =>
    show (deployRestored w input history listed apps).1 = w ∨ _
    cases hsequence : input.sequence with
    | none =>
      left
      unfold deployRestored
      rw [hsequence]
    | some sequence =>
      refine .inr (.inr (.inr (.inl ⟨deployVersion w.db listed.app.id sequence input.now,
        fun _ => inProgress_of_app rfl, ?_⟩)))
      show (deployRestored w input history listed apps).1 = _
      unfold deployRestored
      rw [hsequence]
  | resetting history listed apps =>
    exact .inr (.inr (.inr (.inr ⟨history, listed, apps, rfl, rfl⟩)))
  | done => exact .inl rfl

/-! ## The entries -/

/-- The entries of the arrays and of the ticks have been pushed, and only these remember anything. -/
structure Entries (s : State) : Prop where
  arrays : ∀ a, ∀ h ∈ s.world.arrays a, h ∈ s.world.pushed
  ticks : ∀ t ∈ s.ticks, ∀ h, t.phase.history = some h → h ∈ s.world.pushed
  lastDeployedSequences : ∀ h appId, s.world.lastDeployedSequences h appId ≠ none →
    h ∈ s.world.pushed

theorem entries_tick {s : State} (hs : Entries s) {i : Nat} {t : Tick} (ht : s.ticks[i]? = some t)
    (input : Input) :
    Entries { world := (t.step s.world input).1,
              ticks := s.ticks.set i (t.step s.world input).2 } := by
  have hmem := List.mem_of_getElem? ht
  have hticks : ∀ u ∈ s.ticks.set i (t.step s.world input).2, ∀ h, u.phase.history = some h →
      h ∈ s.world.pushed := by
    intro u hu h hh
    rcases List.mem_or_eq_of_mem_set hu with hold | rfl
    · exact hs.ticks u hold h hh
    · rcases Tick.step_history hh with hsame | harray
      · exact hs.ticks t hmem h hsame
      · exact hs.arrays t.array h harray
  rcases t.step_world s.world input with
    h | ⟨history, app, seen, apps, args, hphase, -, h⟩ | ⟨history, listed, cluster, apps, args, -, -, h⟩ |
    ⟨db, -, h⟩ | ⟨history, listed, apps, -, h⟩
  · rw [h]
    exact ⟨hs.arrays, hticks, hs.lastDeployedSequences⟩
  · rw [h]
    refine ⟨hs.arrays, hticks, fun history' appId hsome => ?_⟩
    by_cases heq : history' = history
    · rw [heq]
      exact hs.ticks t hmem history (by rw [hphase]; rfl)
    · refine hs.lastDeployedSequences history' appId ?_
      have hsame : (s.world.emitDeploy history app seen args).lastDeployedSequences history' appId =
          s.world.lastDeployedSequences history' appId := by
        unfold World.emitDeploy
        dsimp only
        rw [Function.update_of_ne heq]
      rw [← hsame]
      exact hsome
  · rw [h]
    exact ⟨hs.arrays, hticks, hs.lastDeployedSequences⟩
  · rw [h]
    exact ⟨hs.arrays, hticks, hs.lastDeployedSequences⟩
  · rw [h]
    exact ⟨hs.arrays, hticks, hs.lastDeployedSequences⟩

theorem entries_connect {s : State} (hs : Entries s) (history : ClusterSocketHistory) (gone : Bool) :
    Entries { s with world := connect s.world history gone } where
  arrays := by
    intro a h hh
    unfold connect at hh ⊢
    dsimp only at hh ⊢
    by_cases ha : a = s.world.array
    · rw [ha, Function.update_self] at hh
      rcases List.mem_append.mp hh with hold | hlast
      · exact List.mem_cons_of_mem history (hs.arrays s.world.array h hold)
      · rw [List.mem_singleton.mp hlast]
        exact List.mem_cons_self
    · rw [Function.update_of_ne ha] at hh
      exact List.mem_cons_of_mem history (hs.arrays a h hh)
  ticks := fun t ht h hh => List.mem_cons_of_mem history (hs.ticks t ht h hh)
  lastDeployedSequences := fun h appId hsome =>
    List.mem_cons_of_mem history (hs.lastDeployedSequences h appId hsome)

theorem entries_disconnect {s : State} (hs : Entries s) (socketId : String) :
    Entries { s with world := disconnect s.world socketId } where
  arrays := by
    intro a h hh
    unfold disconnect at hh ⊢
    dsimp only at hh ⊢
    by_cases ha : a = s.world.array + 1
    · rw [ha, Function.update_self] at hh
      exact hs.arrays s.world.array h (List.mem_filter.mp hh).1
    · rw [Function.update_of_ne ha] at hh
      exact hs.arrays a h hh
  ticks := hs.ticks
  lastDeployedSequences := hs.lastDeployedSequences

theorem entries_step {s s' : State} {a : Action} (hs : Entries s)
    (hstep : machine.step s a = some s') : Entries s' := by
  cases a with
  | connect history gone =>
    simp only [machine, step] at hstep
    split at hstep
    next => cases hstep
    next =>
      cases hstep
      exact entries_connect hs history gone
  | disconnect socketId =>
    cases hstep
    exact entries_disconnect hs socketId
  | start loop =>
    cases hstep
    refine ⟨hs.arrays, fun t ht h hh => ?_, hs.lastDeployedSequences⟩
    rcases List.mem_append.mp ht with hold | hnew
    · exact hs.ticks t hold h hh
    · rw [List.mem_singleton.mp hnew] at hh
      cases hh
  | tick i input =>
    obtain ⟨t, ht, rfl⟩ := Option.map_eq_some_iff.mp hstep
    exact entries_tick hs ht input
  | deployVersion appId sequence now =>
    cases hstep
    exact ⟨hs.arrays, hs.ticks, hs.lastDeployedSequences⟩
  | initiateRestore snapshotName appId =>
    simp only [machine, step] at hstep
    split at hstep
    next => cases hstep
    next =>
      cases hstep
      exact ⟨hs.arrays, hs.ticks, hs.lastDeployedSequences⟩
  | cancelRestore appId =>
    cases hstep
    exact ⟨hs.arrays, hs.ticks, hs.lastDeployedSequences⟩
  | undeployResult appId status =>
    cases hstep
    exact ⟨hs.arrays, hs.ticks, hs.lastDeployedSequences⟩

theorem entries_init {s : State} (h : Init s) : Entries s where
  arrays := fun a h' hh' => by rw [h.arrays] at hh'; cases hh'
  ticks := fun t ht => by rw [h.ticks] at ht; cases ht
  lastDeployedSequences := fun h' appId hsome => absurd (h.lastDeployedSequences h' appId) hsome

end Kotsadm.Ticks
