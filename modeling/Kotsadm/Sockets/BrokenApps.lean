import Kotsadm.Lib.Visits
import Kotsadm.Sockets.DeployedVersion

/-!
# BrokenApps — a tick of `deployLoop` in which steps fail

`deployLoop` of `DeploySocket` with statements that may fail, and with the statuses it writes.  A
failure before the `try` of an iteration ends the tick, and so does one in its `catch`.  The tick
is compared with the one without the apps that fail.
-/

namespace Kotsadm.BrokenApps

open KotsAppStore

/-! ## The tick -/

/-- The statements of a tick about one app. -/
inductive Statement where
  | getApp
  | getCurrentVersion
  | getCluster
  | getKotsAppSpec
  | getPreviouslyDeployedSequence
  | updateDownstreamsStatus
  -- after the emission
  | getKotsAppSpecAgain
  | setKotsAppStatus
  deriving DecidableEq, Repr

/-- What an iteration meets besides the database. -/
structure Iteration extends Env where
  /-- The statements that fail. -/
  failure : Statement → Option String := fun _ => none

def Iteration.query {α : Type} (env : Iteration) (statement : Statement) (x : Except String α) :
    Except String α :=
  match env.failure statement with
  | some e => .error e
  | none => x

structure TickState extends DeployState where
  -- the apps that `setKotsAppStatus` has set to ready, the last one first
  readyApps : List AppId := []

def deployArgs (env : Iteration) (db : Database) (app : KotsApp) (cluster : ClusterRow)
    (deployedAppSequence : Int) : Except String ApplicationManifests := do
  let kotsAppSpec ← env.query .getKotsAppSpec (getKotsAppSpec env.toEnv db app.id cluster.id)
  let rendered ← env.render app.id (toString deployedAppSequence) (overlayPath cluster)
    (kustomizeVersion kotsAppSpec)
  let imagePullSecret ← env.getImagePullSecretFromArchive app.id (toString deployedAppSequence)
  let previousSequence ← env.query .getPreviouslyDeployedSequence
    (.ok (getPreviouslyDeployedSequence db app.id cluster.id deployedAppSequence))
  let previousManifests ← renderPrevious env.toEnv app.id cluster (kustomizeVersion kotsAppSpec)
    previousSequence
  return {
    appId := app.id
    appSlug := app.slug
    kubectlVersion := kubectlVersion kotsAppSpec
    additionalNamespaces := ((kotsAppSpec.map (·.additionalNamespaces)).getD [])
    imagePullSecret := imagePullSecret
    desiredNamespace := "."
    manifests := env.base64 rendered
    previousManifests := previousManifests
    resultCallback := "/api/v1/deploy/result"
    wait := false
    annotateSlug := env.annotateSlug }

def emitDeploy (s : TickState) (history : ClusterSocketHistory) (app : KotsApp) (sequence : Int)
    (args : ApplicationManifests) : TickState :=
  { s with toDeployState := Kotsadm.emitDeploy s.toDeployState history app sequence args }

/-- The second `try`; what fails in it is logged. -/
def emitInformers (env : Iteration) (history : ClusterSocketHistory) (app : KotsApp)
    (s : TickState) : TickState :=
  match env.query .getKotsAppSpecAgain (getKotsAppSpec env.toEnv s.db app.id history.clusterId) with
  | .error _ => s
  | .ok (some { statusInformers := some informers, .. }) =>
    { s with appInformers := (history.clusterId, app.id, informers) :: s.appInformers }
  | .ok _ =>
    match env.failure .setKotsAppStatus with
    | some _ => s
    | none => { s with readyApps := app.id :: s.readyApps }

def maybeDeployedAppSequence (env : Iteration) (db : Database) (appId : AppId)
    (clusterId : ClusterId) : Except String (Option Int) :=
  (env.query .getCurrentVersion (getCurrentVersion db appId clusterId)).map
    (Option.map (·.sequence))

/-- The body of the inner loop, with what escapes it. -/
def deployApp (env : Iteration) (history : ClusterSocketHistory) (app : KotsApp) (s : TickState) :
    TickState × Option String :=
  if restoreInProgress app then (s, none)
  else
    match maybeDeployedAppSequence env s.db app.id history.clusterId with
    | .error msg => (s, some msg)
    | .ok none => (s, none)
    | .ok (some deployedAppSequence) =>
      if deployedAppSequence > -1 then
        if s.lastDeployedSequences history.socketId app.id = some deployedAppSequence then (s, none)
        else
          match env.query .getCluster (getCluster s.db history.clusterId) with
          | .error msg => (s, some msg)
          | .ok cluster =>
            match deployArgs env s.db app cluster deployedAppSequence with
            | .error err =>
              match env.failure .updateDownstreamsStatus with
              | some msg => (s, some msg)
              | none =>
                ({ s with
                    db := updateDownstreamsStatus s.db app.id deployedAppSequence "failed" err },
                  none)
            | .ok args =>
              (emitInformers env history app (emitDeploy s history app deployedAppSequence args),
                none)
      else (s, none)

/-- What the iterations of a tick meet. -/
abbrev Tick := ClusterSocketHistory → AppId → Iteration

def getApp (env : Iteration) (db : Database) (appId : AppId) : Except String KotsApp :=
  env.query .getApp (KotsAppStore.getApp db appId)

/-- `select app_id from app_downstream where cluster_id = $1` -/
def appsOfCluster (db : Database) (clusterId : ClusterId) : List AppId :=
  (db.appDownstream.rows.filter fun r => r.clusterId = clusterId).map (·.appId)

def listAppsForCluster (env : AppId → Iteration) (db : Database) (clusterId : ClusterId) :
    Except String (List KotsApp) :=
  (appsOfCluster db clusterId).mapM fun appId => getApp (env appId) db appId

def deployCluster (tick : Tick) (history : ClusterSocketHistory) (s : TickState) :
    TickState × Option String :=
  match listAppsForCluster (tick history) s.db history.clusterId with
  | .error msg => (s, some msg)
  | .ok apps => forEach (fun app => deployApp (tick history app.id) history app) apps s

def deployLoop (tick : Tick) (s : TickState) : TickState :=
  (forEach (deployCluster tick) s.clusterSocketHistory s).1

/-- An iteration in which no statement fails. -/
def Iteration.ofEnv (env : Env) : Iteration := { env with }

section OfEnv

variable (env : Env) (history : ClusterSocketHistory)

@[simp] theorem query_ofEnv {α : Type} (statement : Statement) (x : Except String α) :
    (Iteration.ofEnv env).query statement x = x := rfl

@[simp] theorem toEnv_ofEnv : (Iteration.ofEnv env).toEnv = env := rfl

theorem deployArgs_ofEnv (db : Database) (app : KotsApp) (cluster : ClusterRow) (sequence : Int) :
    deployArgs (.ofEnv env) db app cluster sequence =
      Kotsadm.deployArgs env db app cluster sequence := rfl

theorem emitInformers_ofEnv (app : KotsApp) (s : TickState) :
    (emitInformers (.ofEnv env) history app s).toDeployState =
      Kotsadm.emitInformers env s.toDeployState history app := by
  unfold emitInformers Kotsadm.emitInformers
  rw [query_ofEnv, toEnv_ofEnv]
  cases getKotsAppSpec env s.db app.id history.clusterId with
  | error msg => rfl
  | ok spec =>
    cases spec with
    | none => rfl
    | some spec =>
      obtain ⟨kustomizeVersion, kubectlVersion, additionalNamespaces, informers⟩ := spec
      cases informers <;> rfl

theorem deployApp_ofEnv (app : KotsApp) (s : TickState) :
    Kotsadm.deployApp env history app s.toDeployState =
      ((deployApp (.ofEnv env) history app s).1.toDeployState,
        (deployApp (.ofEnv env) history app s).2) := by
  unfold deployApp Kotsadm.deployApp maybeDeployedAppSequence
  rw [query_ofEnv]
  split
  · rfl
  · cases getCurrentVersion s.db app.id history.clusterId with
    | error msg => rfl
    | ok v =>
      cases v with
      | none => rfl
      | some v =>
        dsimp only [Except.map, Option.map_some]
        split
        · split
          · rfl
          · rw [query_ofEnv]
            cases getCluster s.db history.clusterId with
            | error msg => rfl
            | ok cluster =>
              dsimp only
              rw [deployArgs_ofEnv]
              cases Kotsadm.deployArgs env s.db app cluster v.sequence with
              | error err => rfl
              | ok args =>
                dsimp only
                rw [emitInformers_ofEnv]
                rfl
        · rfl

/-- Without failing statements a tick is one of `DeploySocket`. -/
theorem deployLoop_ofEnv (s : TickState) :
    (deployLoop (fun _ _ => .ofEnv env) s).toDeployState =
      Kotsadm.deployLoop env s.toDeployState := by
  have hcluster : ∀ history (s : TickState),
      Kotsadm.deployCluster env history s.toDeployState =
        ((deployCluster (fun _ _ => .ofEnv env) history s).1.toDeployState,
          (deployCluster (fun _ _ => .ofEnv env) history s).2) := by
    intro history s
    unfold deployCluster Kotsadm.deployCluster
    have hlisted : listAppsForCluster (fun _ => .ofEnv env) s.db history.clusterId =
        KotsAppStore.listAppsForCluster s.db history.clusterId := rfl
    rw [hlisted]
    cases KotsAppStore.listAppsForCluster s.db history.clusterId with
    | error msg => rfl
    | ok apps => exact forEach_part (deployApp_ofEnv env history) apps s
  exact (congrArg Prod.fst (forEach_part hcluster s.clusterSocketHistory s)).symm

end OfEnv

/-! ## Without some apps -/

/-- The database as it is without the rows of the broken apps. -/
def withoutRows (broken : AppId → Bool) (db : Database) : Database :=
  { db with
    app := db.app.deleteWhere fun r => broken r.id
    appVersion := db.appVersion.deleteWhere fun r => broken r.appId
    appDownstream := db.appDownstream.deleteWhere fun r => broken r.appId
    appDownstreamVersion := db.appDownstreamVersion.deleteWhere fun r => broken r.appId
    appDownstreamOutput := db.appDownstreamOutput.deleteWhere fun r => broken r.appId }

/-- What a tick reads and leaves, without what concerns the broken apps. -/
def withoutApps (broken : AppId → Bool) (s : TickState) : TickState where
  db := withoutRows broken s.db
  clusterSocketHistory := s.clusterSocketHistory
  lastDeployedSequences socketId appId :=
    if broken appId then none else s.lastDeployedSequences socketId appId
  deploys := s.deploys.filter fun e => !broken e.args.appId
  appInformers := s.appInformers.filter fun e => !broken e.2.1
  readyApps := s.readyApps.filter fun appId => !broken appId

/-! ## What an iteration reads -/

/-- The sequence that is deployed to a cluster, and that of the app version it belongs to. -/
def currentSequences (db : Database) (appId : AppId) (clusterId : ClusterId) :
    Except String (Option (Int × Int)) :=
  (getCurrentVersion db appId clusterId).map (Option.map fun v => (v.sequence, v.parentSequence))

/-- The iterations for an app find the same in the two databases. -/
structure SameFor (appId : AppId) (db db' : Database) : Prop where
  app : db.app.find? appId = db'.app.find? appId
  appVersion : ∀ sequence, db.appVersion.find? (appId, sequence) =
    db'.appVersion.find? (appId, sequence)
  current : ∀ clusterId, currentSequences db appId clusterId = currentSequences db' appId clusterId
  previous : ∀ clusterId sequence, getPreviouslyDeployedSequence db appId clusterId sequence =
    getPreviouslyDeployedSequence db' appId clusterId sequence
  cluster : db.cluster = db'.cluster

theorem SameFor.refl (appId : AppId) (db : Database) : SameFor appId db db :=
  ⟨rfl, fun _ => rfl, fun _ => rfl, fun _ _ => rfl, rfl⟩

theorem SameFor.trans {appId : AppId} {db db' db'' : Database} (h : SameFor appId db db')
    (h' : SameFor appId db' db'') : SameFor appId db db'' where
  app := h.app.trans h'.app
  appVersion sequence := (h.appVersion sequence).trans (h'.appVersion sequence)
  current clusterId := (h.current clusterId).trans (h'.current clusterId)
  previous clusterId sequence :=
    (h.previous clusterId sequence).trans (h'.previous clusterId sequence)
  cluster := h.cluster.trans h'.cluster

theorem currentSequences_congr {db db' : Database} {appId : AppId} {clusterId : ClusterId}
    (hdownstream : db.appDownstream.find? (appId, clusterId) =
      db'.appDownstream.find? (appId, clusterId))
    (hversion : ∀ sequence,
      (db.appDownstreamVersion.find? (appId, clusterId, sequence)).map
          (fun r => (r.sequence, r.parentSequence)) =
        (db'.appDownstreamVersion.find? (appId, clusterId, sequence)).map
          fun r => (r.sequence, r.parentSequence)) :
    currentSequences db appId clusterId = currentSequences db' appId clusterId := by
  unfold currentSequences getCurrentVersion
  rw [hdownstream]
  cases db'.appDownstream.find? (appId, clusterId) with
  | none => rfl
  | some downstream =>
    dsimp only
    cases downstream.currentSequence with
    | none => rfl
    | some sequence =>
      have hsame := hversion sequence
      dsimp only
      revert hsame
      cases db.appDownstreamVersion.find? (appId, clusterId, sequence) <;>
        cases db'.appDownstreamVersion.find? (appId, clusterId, sequence)
      · intro _
        rfl
      · intro hsame
        cases hsame
      · intro hsame
        cases hsame
      · intro hsame
        exact congrArg Except.ok hsame

/-- Recording a failure changes nothing that an iteration reads. -/
theorem sameFor_updateDownstreamsStatus (db : Database) (appId appId' : AppId) (sequence : Int)
    (status statusInfo : String) :
    SameFor appId (updateDownstreamsStatus db appId' sequence status statusInfo) db where
  app := rfl
  appVersion _ := rfl
  current clusterId := by
    refine currentSequences_congr rfl fun sequence' => ?_
    unfold updateDownstreamsStatus
    rw [Keyed.find?_updateWhere, Option.map_map]
    congr 1
    funext r
    dsimp only [Function.comp_apply]
    split <;> rfl
  previous clusterId sequence' :=
    getPreviouslyDeployedSequence_updateDownstreamsStatus db appId' appId clusterId sequence
      sequence' status statusInfo
  cluster := rfl

section WithoutRows

variable {broken : AppId → Bool} {appId : AppId}

/-- A row of another app stays. -/
theorem kept_of_key {κ : Type} {key : AppId × κ} {rest : κ} (happ : broken appId = false)
    (h : key = (appId, rest)) : broken key.1 = false := by
  rw [h]
  exact happ

theorem sameFor_withoutRows (happ : broken appId = false) (db : Database) :
    SameFor appId (withoutRows broken db) db where
  app := Keyed.find?_deleteWhere_of_kept fun _ hr => (congrArg broken hr).trans happ
  appVersion sequence :=
    Keyed.find?_deleteWhere_of_kept fun _ hr => kept_of_key happ hr
  current clusterId := by
    refine currentSequences_congr
      (Keyed.find?_deleteWhere_of_kept fun _ hr => kept_of_key happ hr) fun sequence => ?_
    congr 1
    exact Keyed.find?_deleteWhere_of_kept fun _ hr => kept_of_key happ hr
  previous clusterId sequence := by
    have happlied : appliedVersions (withoutRows broken db) appId clusterId =
        appliedVersions db appId clusterId := by
      unfold appliedVersions
      congr 1
      change (db.appDownstreamVersion.rows.filter fun r => !broken r.appId).filter _ = _
      rw [List.filter_filter]
      apply List.filter_congr
      intro r _
      by_cases hr : r.appId = appId
      · simp [hr, happ]
      · simp [hr]
    unfold getPreviouslyDeployedSequence
    rw [happlied]
  cluster := rfl

/-- A failure that is recorded for a broken app is left out with it. -/
theorem withoutRows_updateDownstreamsStatus (happ : broken appId = true) (db : Database)
    (sequence : Int) (status statusInfo : String) :
    withoutRows broken (updateDownstreamsStatus db appId sequence status statusInfo) =
      withoutRows broken db := by
  unfold withoutRows updateDownstreamsStatus
  dsimp only
  rw [Keyed.deleteWhere_updateWhere, Keyed.updateWhere_of_none]
  · intro r hr
    have hkept : broken r.appId = false := (Keyed.mem_deleteWhere.mp hr).2
    have hne : r.appId ≠ appId := fun heq => by
      rw [heq, happ] at hkept
      cases hkept
    simp [hne]
  · intro r
    rfl

end WithoutRows

/-! ## What can fail -/

section Failures

variable (env : Iteration) (history : ClusterSocketHistory) (app : KotsApp) (s : TickState)

/-- The iteration gets to the deployment of this sequence. -/
structure Due (sequence : Int) : Prop where
  restore : restoreInProgress app = false
  version : maybeDeployedAppSequence env s.db app.id history.clusterId = .ok (some sequence)
  deployed : sequence > -1
  changed : s.lastDeployedSequences history.socketId app.id ≠ some sequence

/-- A step of the iteration fails whose failure is not caught. -/
inductive Escapes : Prop where
  | getCurrentVersion {msg : String} (hrestore : restoreInProgress app = false)
      (hversion : maybeDeployedAppSequence env s.db app.id history.clusterId = .error msg)
  | getCluster {sequence : Int} {msg : String} (hdue : Due env history app s sequence)
      (hcluster : env.query .getCluster (getCluster s.db history.clusterId) = .error msg)
  | updateDownstreamsStatus {sequence : Int} {cluster : ClusterRow} {err msg : String}
      (hdue : Due env history app s sequence)
      (hcluster : env.query .getCluster (getCluster s.db history.clusterId) = .ok cluster)
      (hargs : deployArgs env s.db app cluster sequence = .error err)
      (hstatus : env.failure .updateDownstreamsStatus = some msg)

/-- A step of the iteration fails, up to the emission. -/
inductive StepFails : Prop where
  | escapes (h : Escapes env history app s)
  | deployArgs {sequence : Int} {cluster : ClusterRow} {err : String}
      (hdue : Due env history app s sequence)
      (hcluster : env.query .getCluster (getCluster s.db history.clusterId) = .ok cluster)
      (hargs : deployArgs env s.db app cluster sequence = .error err)

end Failures

/-! ## What an iteration does -/

inductive Decision where
  | skip
  | throw (msg : String)
  | fail (sequence : Int) (err : String)
  | deploy (sequence : Int) (args : ApplicationManifests)

section Iteration

variable (env : Iteration) (history : ClusterSocketHistory) (app : KotsApp)

/-- What an iteration does with what it has read. -/
def decision (s : TickState) : Decision :=
  if restoreInProgress app then .skip
  else
    match maybeDeployedAppSequence env s.db app.id history.clusterId with
    | .error msg => .throw msg
    | .ok none => .skip
    | .ok (some sequence) =>
      if sequence > -1 then
        if s.lastDeployedSequences history.socketId app.id = some sequence then .skip
        else
          match env.query .getCluster (getCluster s.db history.clusterId) with
          | .error msg => .throw msg
          | .ok cluster =>
            match deployArgs env s.db app cluster sequence with
            | .error err =>
              match env.failure .updateDownstreamsStatus with
              | some msg => .throw msg
              | none => .fail sequence err
            | .ok args => .deploy sequence args
      else .skip

def perform (s : TickState) : Decision → TickState × Option String
  | .skip => (s, none)
  | .throw msg => (s, some msg)
  | .fail sequence err =>
    ({ s with db := updateDownstreamsStatus s.db app.id sequence "failed" err }, none)
  | .deploy sequence args =>
    (emitInformers env history app (emitDeploy s history app sequence args), none)

variable {env history app}

theorem deployApp_eq (s : TickState) :
    deployApp env history app s = perform env history app s (decision env history app s) := by
  unfold deployApp decision
  split
  · rfl
  · cases maybeDeployedAppSequence env s.db app.id history.clusterId with
    | error msg => rfl
    | ok sequence =>
      cases sequence with
      | none => rfl
      | some sequence =>
        dsimp only
        split
        · split
          · rfl
          · cases env.query .getCluster (getCluster s.db history.clusterId) with
            | error msg => rfl
            | ok cluster =>
              dsimp only
              cases deployArgs env s.db app cluster sequence with
              | ok args => rfl
              | error err =>
                dsimp only
                cases env.failure .updateDownstreamsStatus <;> rfl
        · rfl

theorem maybeDeployedAppSequence_eq (db : Database) (appId : AppId) (clusterId : ClusterId) :
    maybeDeployedAppSequence env db appId clusterId =
      (env.query .getCurrentVersion (currentSequences db appId clusterId)).map
        (Option.map Prod.fst) := by
  unfold maybeDeployedAppSequence currentSequences Iteration.query
  cases env.failure .getCurrentVersion with
  | some msg => rfl
  | none =>
    cases getCurrentVersion db appId clusterId with
    | error msg => rfl
    | ok v => cases v <;> rfl

theorem getKotsAppSpec_eq (env : Env) (db : Database) (appId : AppId) (clusterId : ClusterId) :
    getKotsAppSpec env db appId clusterId =
      match currentSequences db appId clusterId with
      | .error msg => .error (replicatedErrorText msg)
      | .ok none => .ok none
      | .ok (some (_, parentSequence)) =>
        KotsAppStore.getKotsAppSpec env db appId parentSequence := by
  unfold getKotsAppSpec currentSequences
  cases getCurrentVersion db appId clusterId with
  | error msg => rfl
  | ok v => cases v <;> rfl

variable {s t : TickState}

theorem SameFor.getKotsAppSpec {appId : AppId} {db db' : Database} (h : SameFor appId db db')
    (env : Env) (clusterId : ClusterId) :
    getKotsAppSpec env db appId clusterId = Kotsadm.getKotsAppSpec env db' appId clusterId := by
  rw [getKotsAppSpec_eq, getKotsAppSpec_eq, h.current]
  unfold KotsAppStore.getKotsAppSpec
  simp only [h.appVersion]

theorem SameFor.deployArgs {db db' : Database} (h : SameFor app.id db db') (cluster : ClusterRow)
    (sequence : Int) :
    deployArgs env db app cluster sequence =
      BrokenApps.deployArgs env db' app cluster sequence := by
  unfold BrokenApps.deployArgs
  rw [h.getKotsAppSpec, h.previous]

/-- An iteration decides by what it reads. -/
theorem decision_congr (h : SameFor app.id s.db t.db)
    (hlast : s.lastDeployedSequences history.socketId app.id =
      t.lastDeployedSequences history.socketId app.id) :
    decision env history app s = decision env history app t := by
  unfold decision getCluster
  rw [maybeDeployedAppSequence_eq, maybeDeployedAppSequence_eq, h.current, h.cluster, hlast]
  simp only [h.deployArgs]

theorem deployArgs_appId {db : Database} {cluster : ClusterRow} {sequence : Int}
    {args : ApplicationManifests} (h : deployArgs env db app cluster sequence = .ok args) :
    args.appId = app.id := by
  obtain ⟨spec, -, h⟩ := Except.bind_eq_ok.mp h
  obtain ⟨rendered, -, h⟩ := Except.bind_eq_ok.mp h
  obtain ⟨secret, -, h⟩ := Except.bind_eq_ok.mp h
  obtain ⟨previousSequence, -, h⟩ := Except.bind_eq_ok.mp h
  obtain ⟨previous, -, h⟩ := Except.bind_eq_ok.mp h
  cases h
  rfl

/-- The ways an iteration can go. -/
theorem decision_cases (env : Iteration) (history : ClusterSocketHistory) (app : KotsApp)
    (s : TickState) :
    (decision env history app s = .skip ∧ ∀ sequence, ¬ Due env history app s sequence) ∨
      (∃ msg, decision env history app s = .throw msg ∧ Escapes env history app s) ∨
      (∃ sequence err, decision env history app s = .fail sequence err ∧
        StepFails env history app s) ∨
      ∃ sequence args, decision env history app s = .deploy sequence args ∧
        Due env history app s sequence ∧ args.appId = app.id := by
  unfold decision
  split
  next hrestore =>
    refine .inl ⟨rfl, fun sequence hdue => ?_⟩
    rw [hdue.restore] at hrestore
    cases hrestore
  next hrestore =>
    have hrestore : restoreInProgress app = false := by simpa using hrestore
    cases hversion : maybeDeployedAppSequence env s.db app.id history.clusterId with
    | error msg => exact .inr (.inl ⟨msg, rfl, .getCurrentVersion hrestore hversion⟩)
    | ok current =>
      cases current with
      | none =>
        refine .inl ⟨rfl, fun sequence hdue => ?_⟩
        have hsome := hdue.version
        rw [hversion] at hsome
        cases hsome
      | some sequence =>
        have hsame : ∀ sequence', Due env history app s sequence' → sequence' = sequence := by
          intro sequence' hdue
          have hsome := hdue.version
          rw [hversion] at hsome
          cases hsome
          rfl
        dsimp only
        split
        next hdeployed =>
          split
          next hlast =>
            refine .inl ⟨rfl, fun sequence' hdue => hdue.changed ?_⟩
            rw [hsame sequence' hdue]
            exact hlast
          next hlast =>
            have hdue : Due env history app s sequence := ⟨hrestore, hversion, hdeployed, hlast⟩
            cases hcluster : env.query .getCluster (getCluster s.db history.clusterId) with
            | error msg => exact .inr (.inl ⟨msg, rfl, .getCluster hdue hcluster⟩)
            | ok cluster =>
              dsimp only
              cases hargs : deployArgs env s.db app cluster sequence with
              | error err =>
                dsimp only
                cases hstatus : env.failure .updateDownstreamsStatus with
                | some msg =>
                  exact .inr (.inl ⟨msg, rfl,
                    .updateDownstreamsStatus hdue hcluster hargs hstatus⟩)
                | none =>
                  exact .inr (.inr (.inl ⟨sequence, err, rfl, .deployArgs hdue hcluster hargs⟩))
              | ok args =>
                exact .inr (.inr (.inr ⟨sequence, args, rfl, hdue, deployArgs_appId hargs⟩))
        next hdeployed =>
          refine .inl ⟨rfl, fun sequence' hdue => hdeployed ?_⟩
          rw [← hsame sequence' hdue]
          exact hdue.deployed

theorem decision_of_due {sequence : Int} (hdue : Due env history app s sequence) :
    decision env history app s =
      match env.query .getCluster (getCluster s.db history.clusterId) with
      | .error msg => .throw msg
      | .ok cluster =>
        match deployArgs env s.db app cluster sequence with
        | .error err =>
          match env.failure .updateDownstreamsStatus with
          | some msg => .throw msg
          | none => .fail sequence err
        | .ok args => .deploy sequence args := by
  unfold decision
  rw [if_neg (by simp [hdue.restore]), hdue.version]
  dsimp only
  rw [if_pos hdue.deployed, if_neg hdue.changed]

theorem decision_throw_iff :
    (∃ msg, decision env history app s = .throw msg) ↔ Escapes env history app s := by
  constructor
  · rintro ⟨msg, hthrow⟩
    rcases decision_cases env history app s with ⟨h, -⟩ | ⟨_, -, hescapes⟩ | ⟨_, _, h, -⟩ |
      ⟨_, _, h, -⟩
    · rw [h] at hthrow
      cases hthrow
    · exact hescapes
    · rw [h] at hthrow
      cases hthrow
    · rw [h] at hthrow
      cases hthrow
  · intro hescapes
    cases hescapes with
    | @getCurrentVersion msg hrestore hversion =>
      refine ⟨msg, ?_⟩
      unfold decision
      rw [if_neg (by simp [hrestore]), hversion]
    | @getCluster sequence msg hdue hcluster =>
      exact ⟨msg, by rw [decision_of_due hdue, hcluster]⟩
    | @updateDownstreamsStatus sequence cluster err msg hdue hcluster hargs hstatus =>
      exact ⟨msg, by
        rw [decision_of_due hdue, hcluster]
        dsimp only
        rw [hargs, hstatus]⟩

theorem not_stepFails_of_deploy {sequence : Int} {args : ApplicationManifests}
    (h : decision env history app s = .deploy sequence args) :
    ¬ StepFails env history app s := by
  intro hfails
  cases hfails with
  | escapes hescapes =>
    obtain ⟨msg, hthrow⟩ := decision_throw_iff.mpr hescapes
    rw [h] at hthrow
    cases hthrow
  | deployArgs hdue hcluster hargs =>
    rw [decision_of_due hdue, hcluster] at h
    dsimp only at h
    rw [hargs] at h
    dsimp only at h
    split at h <;> cases h

/-- The second `try` leaves everything but its own notes. -/
theorem emitInformers_frame (s : TickState) :
    (emitInformers env history app s).db = s.db ∧
      (emitInformers env history app s).lastDeployedSequences = s.lastDeployedSequences := by
  unfold emitInformers
  split
  · exact ⟨rfl, rfl⟩
  · exact ⟨rfl, rfl⟩
  · split <;> exact ⟨rfl, rfl⟩

/-- An iteration writes nothing to the database that an iteration reads. -/
theorem perform_db (s : TickState) (d : Decision) :
    (∀ appId, SameFor appId (perform env history app s d).1.db s.db) ∧
      (perform env history app s d).1.db.app = s.db.app ∧
      (perform env history app s d).1.db.appDownstream = s.db.appDownstream := by
  cases d with
  | skip => exact ⟨fun appId => .refl appId _, rfl, rfl⟩
  | throw msg => exact ⟨fun appId => .refl appId _, rfl, rfl⟩
  | fail sequence err =>
    exact ⟨fun appId => sameFor_updateDownstreamsStatus s.db appId app.id sequence "failed" err,
      rfl, rfl⟩
  | deploy sequence args =>
    have hdb : (perform env history app s (.deploy sequence args)).1.db = s.db :=
      (emitInformers_frame (emitDeploy s history app sequence args)).1
    rw [hdb]
    exact ⟨fun appId => .refl appId _, rfl, rfl⟩

theorem perform_lastDeployedSequences (s : TickState) (d : Decision) {socketId : String}
    {appId : AppId} (hne : ¬ (socketId = history.socketId ∧ appId = app.id)) :
    (perform env history app s d).1.lastDeployedSequences socketId appId =
      s.lastDeployedSequences socketId appId := by
  cases d with
  | skip => rfl
  | throw msg => rfl
  | fail sequence err => rfl
  | deploy sequence args =>
    unfold perform
    rw [(emitInformers_frame _).2]
    change Function.update s.lastDeployedSequences history.socketId _ socketId appId = _
    by_cases hsocket : socketId = history.socketId
    · rw [hsocket, Function.update_self,
        Function.update_of_ne fun happ => hne ⟨hsocket, happ⟩]
    · rw [Function.update_of_ne hsocket]

theorem perform_deploy_lastDeployedSequences (s : TickState) (sequence : Int)
    (args : ApplicationManifests) :
    (perform env history app s (.deploy sequence args)).1.lastDeployedSequences history.socketId
      app.id = some sequence := by
  unfold perform
  rw [(emitInformers_frame _).2]
  change Function.update s.lastDeployedSequences history.socketId _ history.socketId app.id = _
  rw [Function.update_self, Function.update_self]

/-! ## Iterations and the apps that are left out -/

variable {broken : AppId → Bool}

theorem withoutApps_emitInformers_of_broken (happ : broken app.id = true) (s : TickState) :
    withoutApps broken (emitInformers env history app s) = withoutApps broken s := by
  unfold emitInformers
  split
  · rfl
  · unfold withoutApps
    simp only [List.filter_cons, happ, Bool.not_true, Bool.false_eq_true, if_false]
  · split
    · rfl
    · unfold withoutApps
      simp only [List.filter_cons, happ, Bool.not_true, Bool.false_eq_true, if_false]

theorem withoutApps_emitInformers (happ : broken app.id = false) (s : TickState) :
    withoutApps broken (emitInformers env history app s) =
      emitInformers env history app (withoutApps broken s) := by
  have hspec : getKotsAppSpec env.toEnv (withoutApps broken s).db app.id history.clusterId =
      getKotsAppSpec env.toEnv s.db app.id history.clusterId :=
    (sameFor_withoutRows happ s.db).getKotsAppSpec env.toEnv history.clusterId
  unfold emitInformers
  rw [hspec]
  split
  · rfl
  · unfold withoutApps
    simp only [List.filter_cons, happ, Bool.not_false, if_true]
  · split
    · rfl
    · unfold withoutApps
      simp only [List.filter_cons, happ, Bool.not_false, if_true]

theorem withoutApps_emitDeploy_of_broken {sequence : Int} {args : ApplicationManifests}
    (happ : broken app.id = true) (hargs : args.appId = app.id) (s : TickState) :
    withoutApps broken (emitDeploy s history app sequence args) = withoutApps broken s := by
  have hlast : (fun socketId appId => if broken appId = true then none
      else (emitDeploy s history app sequence args).lastDeployedSequences socketId appId) =
      fun socketId appId => if broken appId = true then none
        else s.lastDeployedSequences socketId appId := by
    funext socketId appId
    split
    next => rfl
    next hother =>
      have hne : appId ≠ app.id := fun heq => hother (heq ▸ happ)
      change Function.update s.lastDeployedSequences history.socketId _ socketId appId = _
      by_cases hsocket : socketId = history.socketId
      · rw [hsocket, Function.update_self, Function.update_of_ne hne]
      · rw [Function.update_of_ne hsocket]
  have hdeploys : (emitDeploy s history app sequence args).deploys.filter
      (fun e => !broken e.args.appId) = s.deploys.filter fun e => !broken e.args.appId := by
    refine List.filter_cons_of_neg ?_
    simp [hargs, happ]
  unfold withoutApps
  rw [hlast, hdeploys]
  rfl

theorem withoutApps_emitDeploy {sequence : Int} {args : ApplicationManifests}
    (happ : broken app.id = false) (hargs : args.appId = app.id) (s : TickState) :
    withoutApps broken (emitDeploy s history app sequence args) =
      emitDeploy (withoutApps broken s) history app sequence args := by
  have hlast : (fun socketId appId => if broken appId = true then none
      else (emitDeploy s history app sequence args).lastDeployedSequences socketId appId) =
      (emitDeploy (withoutApps broken s) history app sequence args).lastDeployedSequences := by
    funext socketId appId
    change (if broken appId = true then none
        else Function.update s.lastDeployedSequences history.socketId _ socketId appId) =
      Function.update (withoutApps broken s).lastDeployedSequences history.socketId _ socketId appId
    by_cases hsocket : socketId = history.socketId
    · rw [hsocket, Function.update_self, Function.update_self]
      by_cases heq : appId = app.id
      · rw [heq, Function.update_self, Function.update_self, happ]
        rfl
      · rw [Function.update_of_ne heq, Function.update_of_ne heq]
        rfl
    · rw [Function.update_of_ne hsocket, Function.update_of_ne hsocket]
      rfl
  have hdeploys : (emitDeploy s history app sequence args).deploys.filter
      (fun e => !broken e.args.appId) =
      (emitDeploy (withoutApps broken s) history app sequence args).deploys := by
    refine List.filter_cons_of_pos ?_
    simp [hargs, happ]
  unfold withoutApps at hlast hdeploys ⊢
  rw [hlast, hdeploys]
  rfl

/-- Of what is done for a broken app nothing is left. -/
theorem withoutApps_deployApp_of_broken (happ : broken app.id = true) (s : TickState) :
    withoutApps broken (deployApp env history app s).1 = withoutApps broken s := by
  rw [deployApp_eq]
  rcases decision_cases env history app s with ⟨h, -⟩ | ⟨msg, h, -⟩ | ⟨sequence, err, h, -⟩ |
    ⟨sequence, args, h, -, hargs⟩ <;> rw [h]
  · rfl
  · rfl
  · unfold perform withoutApps
    dsimp only
    rw [withoutRows_updateDownstreamsStatus happ]
  · unfold perform
    rw [withoutApps_emitInformers_of_broken happ, withoutApps_emitDeploy_of_broken happ hargs]

/-- For another app the same is done without the broken apps, unless it fails itself. -/
theorem deployApp_withoutApps (happ : broken app.id = false) (s : TickState)
    (hsound : ∀ sequence err, decision env history app s ≠ .fail sequence err) :
    deployApp env history app (withoutApps broken s) =
      (withoutApps broken (deployApp env history app s).1, (deployApp env history app s).2) := by
  have hlast : (withoutApps broken s).lastDeployedSequences history.socketId app.id =
      s.lastDeployedSequences history.socketId app.id := by
    change (if broken app.id = true then none else _) = _
    rw [happ]
    rfl
  rw [deployApp_eq, deployApp_eq, decision_congr (sameFor_withoutRows happ s.db) hlast]
  rcases decision_cases env history app s with ⟨h, -⟩ | ⟨msg, h, -⟩ | ⟨sequence, err, h, -⟩ |
    ⟨sequence, args, h, -, hargs⟩
  · rw [h]
    rfl
  · rw [h]
    rfl
  · exact absurd h (hsound sequence err)
  · rw [h]
    unfold perform
    rw [withoutApps_emitInformers happ, withoutApps_emitDeploy happ hargs]

/-- An iteration writes nothing that an iteration reads from the database. -/
theorem deployApp_db (s : TickState) :
    (∀ appId, SameFor appId (deployApp env history app s).1.db s.db) ∧
      (deployApp env history app s).1.db.app = s.db.app ∧
      (deployApp env history app s).1.db.appDownstream = s.db.appDownstream := by
  rw [deployApp_eq]
  exact perform_db s _

end Iteration

/-! ## The visits of a tick -/

inductive Visit where
  -- the listing of the apps for an entry
  | list (history : ClusterSocketHistory)
  | app (history : ClusterSocketHistory) (appId : AppId)
  deriving DecidableEq, Repr

def Visit.history : Visit → ClusterSocketHistory
  | .list history => history
  | .app history _ => history

def visit (tick : Tick) : Visit → TickState → TickState × Option String
  | .list history, s =>
    match listAppsForCluster (tick history) s.db history.clusterId with
    | .error msg => (s, some msg)
    | .ok _ => (s, none)
  | .app history appId, s =>
    match getApp (tick history appId) s.db appId with
    | .error msg => (s, some msg)
    | .ok app => deployApp (tick history appId) history app s

def visitsOf (db : Database) (history : ClusterSocketHistory) : List Visit :=
  .list history :: (appsOfCluster db history.clusterId).map (.app history)

/-- A tick, in order. -/
def visits (s : TickState) : List Visit := s.clusterSocketHistory.flatMap (visitsOf s.db)

section Visits

variable {tick : Tick} {history : ClusterSocketHistory} {s : TickState}

theorem visit_db (x : Visit) (s : TickState) :
    (∀ appId, SameFor appId (visit tick x s).1.db s.db) ∧
      (visit tick x s).1.db.app = s.db.app ∧
      (visit tick x s).1.db.appDownstream = s.db.appDownstream := by
  unfold visit
  split
  · split <;> exact ⟨fun appId => .refl appId _, rfl, rfl⟩
  · split
    · exact ⟨fun appId => .refl appId _, rfl, rfl⟩
    · exact deployApp_db _

theorem getApp_ok {env : Iteration} {db : Database} {appId : AppId} {app : KotsApp}
    (h : getApp env db appId = .ok app) : app.id = appId := by
  unfold getApp Iteration.query at h
  split at h
  · cases h
  · exact getApp_id h

/-- The apps that are listed are visited by their ids. -/
theorem forEach_listed {ids : List AppId} {apps : List KotsApp}
    (hlisted : (ids.mapM fun appId => getApp (tick history appId) s.db appId) = .ok apps) :
    forEach (fun app => deployApp (tick history app.id) history app) apps s =
      forEach (fun appId => visit tick (.app history appId)) ids s := by
  refine forEach_loaded (I := fun t => t.db.app = s.db.app)
    (fun app t ht => (deployApp_db t).2.1.trans ht) ?_ hlisted s rfl
  intro appId app t happ ht
  have happ' : getApp (tick history appId) t.db appId = .ok app := by
    unfold getApp KotsAppStore.getApp at happ ⊢
    rw [ht]
    exact happ
  unfold visit
  dsimp only
  rw [happ', getApp_ok happ]

theorem deployCluster_eq (s : TickState) :
    deployCluster tick history s = forEach (visit tick) (visitsOf s.db history) s := by
  unfold deployCluster visitsOf
  rw [forEach, visit]
  cases hlisted : listAppsForCluster (tick history) s.db history.clusterId with
  | error msg => rfl
  | ok apps =>
    dsimp only
    rw [forEach_map]
    exact forEach_listed hlisted

theorem deployCluster_db (s : TickState) :
    (deployCluster tick history s).1.db.appDownstream = s.db.appDownstream := by
  rw [deployCluster_eq]
  exact forEach_inv (I := fun t => t.db.appDownstream = s.db.appDownstream) _
    (fun x _ t ht => (visit_db x t).2.2.trans ht) s rfl

theorem deployLoop_eq (s : TickState) :
    deployLoop tick s = (forEach (visit tick) (visits s) s).1 := by
  have hflat : forEach (deployCluster tick) s.clusterSocketHistory s =
      forEach (visit tick) (s.clusterSocketHistory.flatMap (visitsOf s.db)) s :=
    forEach_flatMap (I := fun t => t.db.appDownstream = s.db.appDownstream) _
      (fun _ _ t ht => (deployCluster_db t).trans ht)
      (fun history _ t ht => by
        rw [deployCluster_eq]
        unfold visitsOf appsOfCluster
        rw [ht]) s rfl
  unfold deployLoop visits
  rw [hflat]

end Visits

/-! ## The broken apps and the others -/

def Visit.isOther (broken : AppId → Bool) : Visit → Bool
  | .list _ => false
  | .app _ appId => !broken appId

/-- No step of an iteration for the app fails. -/
def Sound (tick : Tick) (s : TickState) (history : ClusterSocketHistory) (appId : AppId) : Prop :=
  ∃ app, getApp (tick history appId) s.db appId = .ok app ∧
    ¬ StepFails (tick history appId) history app s

/-- What is not broken is sound. -/
def OthersSound (broken : AppId → Bool) (tick : Tick) (s : TickState) : Prop :=
  ∀ history appId, Visit.app history appId ∈ visits s → broken appId = false →
    Sound tick s history appId

/-- The visit ends the tick. -/
def Ends (tick : Tick) (s : TickState) : Visit → Prop
  | .list history => ∃ appId ∈ appsOfCluster s.db history.clusterId,
    ∃ msg, getApp (tick history appId) s.db appId = .error msg
  | .app history appId =>
    (∃ msg, getApp (tick history appId) s.db appId = .error msg) ∨
      ∃ app, getApp (tick history appId) s.db appId = .ok app ∧
        Escapes (tick history appId) history app s

/-- There is something to deploy. -/
def HasWork (tick : Tick) (s : TickState) : Visit → Prop
  | .list _ => False
  | .app history appId => ∃ app sequence, getApp (tick history appId) s.db appId = .ok app ∧
    Due (tick history appId) history app s sequence

/-- A failure for a broken app ends the tick before another app gets its deployment. -/
def Starves (broken : AppId → Bool) (tick : Tick) (s : TickState) (x y : Visit) : Prop :=
  x.isOther broken = false ∧ Ends tick s x ∧ y.isOther broken = true ∧ HasWork tick s y

section Others

variable {broken : AppId → Bool} {tick : Tick} {history : ClusterSocketHistory} {appId : AppId}
  {s t : TickState}

theorem SameFor.getApp {db db' : Database} (h : SameFor appId db db') (env : Iteration) :
    getApp env db appId = BrokenApps.getApp env db' appId := by
  unfold BrokenApps.getApp KotsAppStore.getApp
  rw [h.app]

/-- The iteration for a sound app emits, or has nothing to do. -/
theorem Sound.decision (hsound : Sound tick s history appId)
    (hdb : ∀ appId, SameFor appId t.db s.db)
    (hlast : t.lastDeployedSequences history.socketId appId =
      s.lastDeployedSequences history.socketId appId) :
    ∃ app, app.id = appId ∧ getApp (tick history appId) s.db appId = .ok app ∧
      getApp (tick history appId) t.db appId = .ok app ∧
      ((decision (tick history appId) history app t = .skip ∧
          ∀ sequence, ¬ Due (tick history appId) history app s sequence) ∨
        ∃ sequence args, decision (tick history appId) history app t = .deploy sequence args ∧
          Due (tick history appId) history app s sequence) := by
  obtain ⟨app, happ, hfails⟩ := hsound
  have hid : app.id = appId := getApp_ok happ
  have hsame : BrokenApps.decision (tick history appId) history app t =
      BrokenApps.decision (tick history appId) history app s :=
    decision_congr (hdb app.id) (by rw [hid]; exact hlast)
  refine ⟨app, hid, happ, ((hdb appId).getApp _).trans happ, ?_⟩
  rw [hsame]
  rcases decision_cases (tick history appId) history app s with ⟨h, hdue⟩ | ⟨_, -, hescapes⟩ |
    ⟨_, _, -, hstep⟩ | ⟨sequence, args, h, hdue, -⟩
  · exact .inl ⟨h, hdue⟩
  · exact absurd (.escapes hescapes) hfails
  · exact absurd hstep hfails
  · exact .inr ⟨sequence, args, h, hdue⟩

theorem nodup_appsOfCluster (db : Database) (clusterId : ClusterId) :
    (appsOfCluster db clusterId).Nodup := by
  have hkeys : ((db.appDownstream.rows.filter fun r => r.clusterId = clusterId).map
      AppDownstreamRow.key).Nodup :=
    (List.Sublist.map _ List.filter_sublist).nodup db.appDownstream.nodup
  refine List.Nodup.map_on ?_ (List.Nodup.of_map _ hkeys)
  intro r hr r' hr' heq
  have hcluster : r.clusterId = r'.clusterId := by
    rw [of_decide_eq_true (List.mem_filter.mp hr).2, of_decide_eq_true (List.mem_filter.mp hr').2]
  exact List.inj_on_of_nodup_map hkeys hr hr' (Prod.ext heq hcluster)

theorem history_of_mem {db : Database} {x : Visit} (h : x ∈ visitsOf db history) :
    x.history = history := by
  rcases List.mem_cons.mp h with rfl | h
  · rfl
  · obtain ⟨appId, -, rfl⟩ := List.mem_map.mp h
    rfl

theorem history_mem_of_mem_visits {x : Visit} (h : x ∈ visits s) :
    x.history ∈ s.clusterSocketHistory := by
  obtain ⟨history, hhistory, h⟩ := List.mem_flatMap.mp h
  rw [history_of_mem h]
  exact hhistory

theorem nodup_visits (hsockets : (s.clusterSocketHistory.map (·.socketId)).Nodup) :
    (visits s).Nodup := by
  refine List.nodup_flatMap.mpr ⟨fun history _ => ?_, ?_⟩
  · refine List.nodup_cons.mpr ⟨by simp, ?_⟩
    exact (nodup_appsOfCluster s.db history.clusterId).map fun _ _ h => by
      injection h
  · refine (List.Nodup.of_map _ hsockets).imp ?_
    intro history history' hne x hx hx'
    exact hne ((history_of_mem hx).symm.trans (history_of_mem hx'))

/-- The part of a visit is what is remembered for the socket and the app. -/
def Untouched (s : TickState) : Visit → TickState → Prop
  | .list _, _ => True
  | .app history appId, t => t.lastDeployedSequences history.socketId appId =
    s.lastDeployedSequences history.socketId appId

theorem visit_lastDeployedSequences (x : Visit) {socketId : String} {appId : AppId}
    (hne : ∀ history, x = .app history appId → socketId ≠ history.socketId) (t : TickState) :
    (visit tick x t).1.lastDeployedSequences socketId appId =
      t.lastDeployedSequences socketId appId := by
  unfold visit
  cases x with
  | list history =>
    dsimp only
    split <;> rfl
  | app history appId' =>
    dsimp only
    split
    · rfl
    next app happ =>
      rw [deployApp_eq]
      refine perform_lastDeployedSequences t _ fun hboth => ?_
      have hid : appId' = appId := by rw [hboth.2, getApp_ok happ]
      exact hne history (by rw [hid]) hboth.1

theorem untouched_visit (hsockets : (s.clusterSocketHistory.map (·.socketId)).Nodup) {x y : Visit}
    (hx : x ∈ visits s) (hy : y ∈ visits s) (hne : x ≠ y) (t : TickState) :
    Untouched s y (visit tick x t).1 ↔ Untouched s y t := by
  cases y with
  | list history => exact Iff.rfl
  | app history appId =>
    unfold Untouched
    dsimp only
    rw [visit_lastDeployedSequences]
    rintro history' rfl hsocket
    have hhistory : history' = history := List.inj_on_of_nodup_map hsockets
      (history_mem_of_mem_visits hx) (history_mem_of_mem_visits hy) hsocket.symm
    exact hne (by rw [hhistory])

theorem visit_none_iff {x : Visit} (hother : x.isOther broken = false) (t : TickState)
    (hdb : ∀ appId, SameFor appId t.db s.db)
    (hdownstream : t.db.appDownstream = s.db.appDownstream) (huntouched : Untouched s x t) :
    (visit tick x t).2 = none ↔ ¬ Ends tick s x := by
  cases x with
  | list history =>
    have hends : Ends tick s (.list history) ↔
        ∃ msg, listAppsForCluster (tick history) t.db history.clusterId = .error msg := by
      unfold listAppsForCluster appsOfCluster
      rw [hdownstream, List.mapM_eq_error_iff]
      simp only [Ends, appsOfCluster, (hdb _).getApp]
    rw [hends]
    unfold visit
    dsimp only
    cases listAppsForCluster (tick history) t.db history.clusterId with
    | error msg => exact ⟨nofun, fun hnone => absurd ⟨msg, rfl⟩ hnone⟩
    | ok apps => exact ⟨fun _ => nofun, fun _ => rfl⟩
  | app history appId =>
    unfold visit Ends
    dsimp only
    rw [(hdb appId).getApp]
    cases happ : BrokenApps.getApp (tick history appId) s.db appId with
    | error msg => exact ⟨nofun, fun hnone => absurd (.inl ⟨msg, rfl⟩) hnone⟩
    | ok app =>
      have hid : app.id = appId := getApp_ok happ
      have hsame : BrokenApps.decision (tick history appId) history app t =
          BrokenApps.decision (tick history appId) history app s :=
        decision_congr (hdb app.id) (by rw [hid]; exact huntouched)
      have hends : ((∃ msg, (Except.ok app : Except String KotsApp) = .error msg) ∨
          ∃ app', (Except.ok app : Except String KotsApp) = .ok app' ∧
            Escapes (tick history appId) history app' s) ↔
          ∃ msg, BrokenApps.decision (tick history appId) history app t = .throw msg := by
        rw [hsame, decision_throw_iff]
        simp
      rw [hends]
      dsimp only
      rw [deployApp_eq]
      cases BrokenApps.decision (tick history appId) history app t <;> simp [perform]

theorem withoutApps_visit {x : Visit} (hout : x.isOther broken = false) (t : TickState) :
    withoutApps broken (visit tick x t).1 = withoutApps broken t := by
  unfold visit
  cases x with
  | list history =>
    dsimp only
    split <;> rfl
  | app history appId =>
    have happ : broken appId = true := by simpa [Visit.isOther] using hout
    dsimp only
    split
    · rfl
    next app hlisted =>
      exact withoutApps_deployApp_of_broken (by rw [getApp_ok hlisted]; exact happ) t

/-- The visit of another app. -/
theorem visit_other (hsound : Sound tick s history appId) (happ : broken appId = false)
    (hdb : ∀ appId, SameFor appId t.db s.db) (huntouched : Untouched s (.app history appId) t) :
    ((visit tick (.app history appId) t).2 = none ∧
        visit tick (.app history appId) (withoutApps broken t) =
          (withoutApps broken (visit tick (.app history appId) t).1, none)) ∧
      (¬ HasWork tick s (.app history appId) → (visit tick (.app history appId) t).1 = t) ∧
      (HasWork tick s (.app history appId) →
        ¬ Untouched s (.app history appId) (visit tick (.app history appId) t).1) := by
  obtain ⟨app, hid, happ₀, hlisted, hdecision⟩ := hsound.decision hdb huntouched
  have hother : broken app.id = false := by rw [hid]; exact happ
  have hlisted' : getApp (tick history appId) (withoutApps broken t).db appId = .ok app :=
    ((sameFor_withoutRows happ t.db).getApp _).trans hlisted
  have hwork : HasWork tick s (.app history appId) ↔
      ∃ sequence, Due (tick history appId) history app s sequence := by
    constructor
    · rintro ⟨app', sequence, happ', hdue⟩
      rw [happ₀] at happ'
      cases happ'
      exact ⟨sequence, hdue⟩
    · rintro ⟨sequence, hdue⟩
      exact ⟨app, sequence, happ₀, hdue⟩
  have hvisit : visit tick (.app history appId) t =
      deployApp (tick history appId) history app t := by
    unfold visit
    dsimp only
    rw [hlisted]
  have hvisit' : visit tick (.app history appId) (withoutApps broken t) =
      deployApp (tick history appId) history app (withoutApps broken t) := by
    unfold visit
    dsimp only
    rw [hlisted']
  have hnofail : ∀ sequence err,
      BrokenApps.decision (tick history appId) history app t ≠ .fail sequence err := by
    rcases hdecision with ⟨h, -⟩ | ⟨_, _, h, -⟩ <;> rw [h] <;> exact nofun
  rw [hwork, hvisit', hvisit, deployApp_withoutApps hother t hnofail, deployApp_eq]
  rcases hdecision with ⟨h, hdue⟩ | ⟨sequence, args, h, hdue⟩ <;> rw [h]
  · exact ⟨⟨rfl, rfl⟩, fun _ => rfl, fun ⟨sequence, hdue'⟩ => absurd hdue' (hdue sequence)⟩
  · refine ⟨⟨rfl, rfl⟩, fun hidle => absurd ⟨sequence, hdue⟩ hidle, fun _ hsame => ?_⟩
    have hlast :=
      @perform_deploy_lastDeployedSequences (tick history appId) history app t sequence args
    unfold Untouched at hsame
    dsimp only at hsame
    rw [hid] at hlast
    rw [hlast] at hsame
    exact hdue.changed (by rw [hid]; exact hsame.symm)

theorem app_of_other {x : Visit} (hout : (!x.isOther broken) = false) :
    ∃ history appId, x = .app history appId ∧ broken appId = false := by
  cases x with
  | list history => cases hout
  | app history appId => exact ⟨history, appId, rfl, by simpa [Visit.isOther] using hout⟩

/-- The visits of a tick. -/
def parts (broken : AppId → Bool) (tick : Tick) (s : TickState)
    (hsockets : (s.clusterSocketHistory.map (·.socketId)).Nodup)
    (hsound : OthersSound broken tick s) : Visits (visit tick) (visit tick) (visits s) where
  leftOut x := !x.isOther broken
  erase := withoutApps broken
  Inv t := (∀ appId, SameFor appId t.db s.db) ∧ t.db.appDownstream = s.db.appDownstream
  Untouched := Untouched s
  Ends := Ends tick s
  HasWork := HasWork tick s
  -- a deployment does not depend on other apps
  Postponed _ := False
  nodup := nodup_visits hsockets
  inv {x t} _ ht := by
    obtain ⟨hdb, -, hdownstream⟩ := @visit_db tick x t
    exact (and_self_iff).mpr
      ⟨fun appId => (hdb appId).trans (ht.1 appId), hdownstream.trans ht.2⟩
  untouched {x y t} hx hy hne _ := and_self_iff.mpr (untouched_visit hsockets hx hy hne t)
  ends {x t} _ hout ht huntouched :=
    visit_none_iff (by simpa using hout) t ht.1 ht.2 huntouched
  erase_body {x t} _ hout _ := withoutApps_visit (by simpa using hout) t
  body_erase {x t} hx hout ht huntouched := by
    obtain ⟨history, appId, rfl, happ⟩ := app_of_other hout
    exact (visit_other (hsound history appId hx happ) happ ht.1 huntouched).1
  idle {x t} hx hout ht huntouched hidle := by
    obtain ⟨history, appId, rfl, happ⟩ := app_of_other hout
    exact (visit_other (hsound history appId hx happ) happ ht.1 huntouched).2.1 hidle
  works {x t} hx hout ht huntouched hwork := by
    obtain ⟨history, appId, rfl, happ⟩ := app_of_other hout
    exact (visit_other (hsound history appId hx happ) happ ht.1 huntouched).2.2 hwork
  postponed _ _ _ _ _ hpostponed := hpostponed.elim
  not_postponed _ _ _ _ _ := rfl
  untouched_erase {x t} _ hout := by
    obtain ⟨history, appId, rfl, happ⟩ := app_of_other hout
    unfold Untouched withoutApps
    dsimp only
    rw [happ]
    rfl

/-! ## The tick without the broken apps -/

theorem appsOfCluster_withoutRows (db : Database) (clusterId : ClusterId) :
    appsOfCluster (withoutRows broken db) clusterId =
      (appsOfCluster db clusterId).filter fun appId => !broken appId := by
  unfold appsOfCluster
  rw [List.filter_map]
  congr 1
  change (db.appDownstream.rows.filter fun r => !broken r.appId).filter _ = _
  rw [List.filter_filter, List.filter_filter]
  apply List.filter_congr
  intro r _
  rw [Bool.and_comm]
  rfl

theorem visits_withoutApps :
    (visits (withoutApps broken s)).filter (fun x => x.isOther broken) =
      (visits s).filter fun x => x.isOther broken := by
  unfold visits
  rw [List.filter_flatMap, List.filter_flatMap]
  change s.clusterSocketHistory.flatMap _ = _
  congr 1
  funext history
  unfold visitsOf
  change List.filter _ (_ :: (appsOfCluster (withoutRows broken s.db) _).map _) = _
  rw [List.filter_cons_of_neg (by simp [Visit.isOther]),
    List.filter_cons_of_neg (by simp [Visit.isOther]), appsOfCluster_withoutRows, List.filter_map,
    List.filter_map, List.filter_filter]
  congr 1
  apply List.filter_congr
  intro appId _
  simp [Visit.isOther]

/-- The apps that are left can all be loaded. -/
theorem visit_list_withoutApps (hsound : OthersSound broken tick s)
    (hhistory : history ∈ s.clusterSocketHistory)
    (hdb : ∀ appId, SameFor appId t.db (withoutApps broken s).db)
    (hdownstream : t.db.appDownstream = (withoutApps broken s).db.appDownstream) :
    visit tick (.list history) t = (t, none) := by
  have hids : appsOfCluster t.db history.clusterId =
      (appsOfCluster s.db history.clusterId).filter fun appId => !broken appId := by
    rw [← appsOfCluster_withoutRows]
    unfold appsOfCluster
    rw [hdownstream]
    rfl
  have hloaded : ¬ ∃ msg, listAppsForCluster (tick history) t.db history.clusterId =
      .error msg := by
    unfold listAppsForCluster
    rw [hids, List.mapM_eq_error_iff]
    rintro ⟨appId, hid, msg, hmsg⟩
    obtain ⟨hid, hother⟩ := List.mem_filter.mp hid
    have happ : broken appId = false := by simpa using hother
    have hvisit : Visit.app history appId ∈ visits s := List.mem_flatMap.mpr ⟨history, hhistory,
      List.mem_cons_of_mem _ (List.mem_map_of_mem hid)⟩
    obtain ⟨app, happ', -⟩ := hsound history appId hvisit happ
    have hsame : SameFor appId t.db s.db := (hdb appId).trans (sameFor_withoutRows happ s.db)
    rw [hsame.getApp, happ'] at hmsg
    cases hmsg
  unfold visit
  dsimp only
  cases hlisted : listAppsForCluster (tick history) t.db history.clusterId with
  | error msg => exact absurd ⟨msg, hlisted⟩ hloaded
  | ok apps => rfl

theorem deployLoop_withoutApps (hsound : OthersSound broken tick s) :
    deployLoop tick (withoutApps broken s) =
      (forEach (visit tick) ((visits s).filter fun x => x.isOther broken)
        (withoutApps broken s)).1 := by
  rw [deployLoop_eq, ← visits_withoutApps]
  congr 1
  refine forEach_filter (I := fun t =>
    (∀ appId, SameFor appId t.db (withoutApps broken s).db) ∧
      t.db.appDownstream = (withoutApps broken s).db.appDownstream) _ _ ?_ ?_ _
    ⟨fun appId => .refl appId _, rfl⟩
  · intro x _ t ht
    obtain ⟨hdb, -, hdownstream⟩ := @visit_db tick x t
    exact ⟨fun appId => (hdb appId).trans (ht.1 appId), hdownstream.trans ht.2⟩
  · intro x hx hout t ht
    cases x with
    | list history => exact visit_list_withoutApps hsound (history_mem_of_mem_visits hx) ht.1 ht.2
    | app history appId =>
      obtain ⟨history', -, hx⟩ := List.mem_flatMap.mp hx
      rcases List.mem_cons.mp hx with hx | hx
      · cases hx
      · obtain ⟨appId', hid, hx⟩ := List.mem_map.mp hx
        cases hx
        change appId ∈ appsOfCluster (withoutRows broken s.db) _ at hid
        rw [appsOfCluster_withoutRows] at hid
        rw [Visit.isOther, (List.mem_filter.mp hid).2] at hout
        cases hout

/-- **A tick serves the other apps as if the broken ones were not there, exactly when no failure
for a broken app ends it before another app gets its deployment.** -/
theorem deployLoop_iff (hsockets : (s.clusterSocketHistory.map (·.socketId)).Nodup)
    (hsound : OthersSound broken tick s) :
    withoutApps broken (deployLoop tick s) = deployLoop tick (withoutApps broken s) ↔
      (visits s).Pairwise fun x y => ¬ Starves broken tick s x y := by
  have hloop := (parts broken tick s hsockets hsound).erase_forEach_iff (s := s)
    ⟨fun appId => .refl appId _, rfl⟩ fun x _ => by
      cases x with
      | list history => exact trivial
      | app history appId => exact rfl
  rw [deployLoop_withoutApps hsound, deployLoop_eq]
  simpa [parts, Visits.Starves, Visits.Loses, Starves] using hloop

end Others

end Kotsadm.BrokenApps
